import EmulationBindings.Text.Blank

/-!
# Environment files

A list of assignments, one to a line unless a quoted value goes on over several.  A line that
cannot be read is passed over, and its number is kept for a warning.  Values may refer to names
that were assigned above them and to the environment.
-/

namespace EmulationBindings.EnvFile

inductive Statement where
  | assign (name value : Text)
  /-- A name without an assignment, which takes back the one before it. -/
  | bare (name : Text)
  | empty
  /-- What starts on this line cannot be read. -/
  | unreadable (line : Nat)
  deriving DecidableEq

/-! ## Values -/

/-- What stands before the closing quote, and after it.  The character after a backslash belongs
to what is quoted, whatever it is. -/
def closing? (mark : Char) : Text → Option (Text × Text)
  | [] => none
  | '\\' :: c :: t => (closing? mark t).map fun (body, rest) => ('\\' :: c :: body, rest)
  | c :: t =>
    if c = mark then some ([], t)
    else (closing? mark t).map fun (body, rest) => (c :: body, rest)

/-- Only the backslash and the apostrophe are escaped between apostrophes. -/
def singleEscape? (c : Char) : Option Char := if c = '\\' ∨ c = '\'' then some c else none

def doubleEscape? : Char → Option Char
  | '\\' => some '\\'
  | '\'' => some '\''
  | '"' => some '"'
  | 'a' => some '\x07'
  | 'b' => some '\x08'
  | 'f' => some '\x0c'
  | 'n' => some '\n'
  | 'r' => some '\r'
  | 't' => some '\t'
  | 'v' => some '\x0b'
  | _ => none

/-- Replaces the escapes that `escape?` knows; any other backslash stands for itself. -/
def unescape (escape? : Char → Option Char) : Text → Text
  | '\\' :: c :: t =>
    match escape? c with
    | some e => e :: unescape escape? t
    | none => '\\' :: unescape escape? (c :: t)
  | c :: t => c :: unescape escape? t
  | [] => []

/-- Ends a value where a comment begins: at a number sign after a blank. -/
def dropComment (afterBlank : Bool) : Text → Text
  | [] => []
  | c :: t => if c = '#' && afterBlank then [] else c :: dropComment (Text.isBlank c) t

def dropInnerBlanks (t : Text) : Text := t.dropWhile Text.isInnerBlank

/-- The value that stands after an equals sign and what follows it, or nothing when its quote is
never closed.  A value without quotes takes the rest of its line. -/
def value? (t : Text) : Option (Text × Text) :=
  match dropInnerBlanks t with
  | '\'' :: t => (closing? '\'' t).map fun (body, rest) => (unescape singleEscape? body, rest)
  | '"' :: t => (closing? '"' t).map fun (body, rest) => (unescape doubleEscape? body, rest)
  | _ =>
    let (line, rest) := t.span (· ≠ '\n')
    some (Text.strip (dropComment false line), rest)

/-! ## Statements -/

def dropExport (t : Text) : Text :=
  match Text.after? "export" t with
  | some (c :: rest) => if Text.isInnerBlank c then dropInnerBlanks rest else t
  | _ => t

def name? : Text → Option (Text × Text)
  | '\'' :: t =>
    match t.span (· ≠ '\'') with
    | (c :: name, _ :: rest) => some (c :: name, rest)
    | _ => none
  | t =>
    match t.span fun c => c ≠ '=' && c ≠ '#' && !Text.isBlank c with
    | ([], _) => none
    | found => some found

def dropLine (t : Text) : Text := (t.dropWhile (· ≠ '\n')).drop 1

/-- Drops a comment and the end of the line, or nothing when something else follows. -/
def lineEnd? (t : Text) : Option Text :=
  match dropInnerBlanks t with
  | [] => some []
  | '\n' :: rest => some rest
  | '#' :: rest => some (dropLine rest)
  | _ => none

/-- The statement that starts at `t`, which has no blank in front, and what follows it.  Where
it cannot be read, the rest of the line is passed over. -/
def statement (line : Nat) (t : Text) : Statement × Text :=
  let ended (s : Statement) (t : Text) : Statement × Text :=
    match lineEnd? t with
    | some rest => (s, rest)
    | none => (.unreadable line, dropLine t)
  let t := dropExport t
  if t.head? = some '#' then ended .empty t
  else
    match name? t with
    | none => (.unreadable line, dropLine t)
    | some (name, rest) =>
      match dropInnerBlanks rest with
      | '=' :: rest =>
        match value? rest with
        | none => (.unreadable line, dropLine rest)
        | some (value, rest) => ended (.assign name value) rest
      | rest => ended (.bare name) rest

/-- All statements from line `line` on.  A statement takes at least one character, so `fuel`
beyond the length of the text is never used up. -/
def statementsFrom : (fuel line : Nat) → Text → List Statement
  | 0, _, _ => []
  | fuel + 1, line, t =>
    match t.dropWhile Text.isBlank with
    | [] => []
    | start =>
      let (s, rest) := statement line start
      s :: statementsFrom fuel (line + t.count '\n' - rest.count '\n') rest

def statements (t : Text) : List Statement := statementsFrom (t.length + 1) 1 t

/-! ## References -/

abbrev Environment := List (Text × Text)

/-- A reference in braces after a dollar sign, cut at the start of `t`: the name, the default, and
what follows. -/
def reference? (t : Text) : Option (Text × Option Text × Text) := do
  let rest ← Text.after? "$\x7b" t
  let (name, rest) := rest.span fun c => c ≠ '\x7d' && c ≠ ':'
  match rest with
  | '\x7d' :: rest => return (name, none, rest)
  | ':' :: '-' :: rest =>
    match rest.span (· ≠ '\x7d') with
    | (value, _ :: rest) => return (name, some value, rest)
    | _ => none
  | _ => none

/-- Replaces every reference by what `resolve` makes of it.  Each step takes a character, so
`fuel` is at most the length of the text. -/
def expandFrom (resolve : Text → Option Text → Text) : (fuel : Nat) → Text → Text
  | 0, t => t
  | _ + 1, [] => []
  | fuel + 1, c :: t =>
    match reference? (c :: t) with
    | some (name, value?, rest) => resolve name value? ++ expandFrom resolve fuel rest
    | none => c :: expandFrom resolve fuel t

abbrev Assignments := List (Text × Option Text)

/-- What a name refers to: an earlier assignment, the environment, the default, or nothing. -/
def resolve (env : Environment) (before : Assignments) (name : Text) (value? : Option Text) :
    Text :=
  match before.lookup name with
  | some assigned => assigned.getD []
  | none => (env.lookup name).getD (value?.getD [])

def assignmentsFrom (env : Environment) (before : Assignments) : List Statement → Assignments
  | [] => before
  | .assign name value :: rest =>
    let expanded := expandFrom (resolve env before) value.length value
    assignmentsFrom env ((name, some expanded) :: before) rest
  | .bare name :: rest => assignmentsFrom env ((name, none) :: before) rest
  | .empty :: rest | .unreadable _ :: rest => assignmentsFrom env before rest

def assignments (env : Environment) (t : Text) : Assignments :=
  assignmentsFrom env [] (statements t)

def unreadableLines (t : Text) : List Nat :=
  (statements t).filterMap fun
    | .unreadable line => some line
    | _ => none

end EmulationBindings.EnvFile
