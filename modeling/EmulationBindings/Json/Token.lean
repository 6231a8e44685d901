import EmulationBindings.Json.CodeUnit
import EmulationBindings.Json.Value

/-!
# JSON tokens

Cuts a text into tokens, each with the offset of its first character.  The last token is the end
of the text, or a broken one that says what is wrong and where; nothing after a broken token is
read.  Numbers take their longest well-formed beginning, so what follows them is a token of its
own.
-/

namespace EmulationBindings.Json

inductive Problem where
  | expectedValue
  | expectedName
  | expectedColon
  | expectedComma
  | extraData
  | unterminatedString
  | controlCharacter
  | escape
  | unicodeEscape
  | byteOrderMark
  deriving DecidableEq

inductive Scalar where
  | null
  | bool (b : Bool)
  | int (negative : Bool) (digits : Text)
  | decimal (d : Decimal)
  | nan
  | infinity (negative : Bool)
  | string (s : Text)
  | unpaired (points : List Nat)
  deriving DecidableEq

inductive Token where
  | openArray
  | closeArray
  | openObject
  | closeObject
  | colon
  | comma
  | scalar (s : Scalar)
  | broken (offset : Nat) (problem : Problem)
  | endOfText
  deriving DecidableEq

/-- Only these four characters may stand between tokens. -/
def isSpace (c : Char) : Bool := c = ' ' || c = '\t' || c = '\n' || c = '\r'

/-! ## Strings -/

def hexValue? (c : Char) : Option Nat :=
  if '0' ≤ c ∧ c ≤ '9' then some (c.toNat - '0'.toNat)
  else if 'a' ≤ c ∧ c ≤ 'f' then some (c.toNat - 'a'.toNat + 10)
  else if 'A' ≤ c ∧ c ≤ 'F' then some (c.toNat - 'A'.toNat + 10)
  else none

def unit? (a b c d : Char) : Option Nat := do
  let a ← hexValue? a
  let b ← hexValue? b
  let c ← hexValue? c
  let d ← hexValue? d
  return ((a * 16 + b) * 16 + c) * 16 + d

def escaped? : Char → Option Char
  | '"' => some '"'
  | '\\' => some '\\'
  | '/' => some '/'
  | 'b' => some '\x08'
  | 'f' => some '\x0c'
  | 'n' => some '\n'
  | 'r' => some '\r'
  | 't' => some '\t'
  | _ => none

def Scalar.ofUnits (units : List Nat) : Scalar :=
  if (codePoints units).any isSurrogate then .unpaired (codePoints units)
  else .string (textOf (codePoints units))

/-- The code units of a string up to its closing quote, the offset after that, and what follows.
An escape of four digits has to have a character after it. -/
def stringUnits (opening : Nat) (pos : Nat) :
    Text → Except (Nat × Problem) (List Nat × Nat × Text)
  | [] => .error (opening, .unterminatedString)
  | '"' :: rest => .ok ([], pos + 1, rest)
  | '\\' :: 'u' :: a :: b :: c :: d :: next :: rest =>
    match unit? a b c d with
    | none => .error (pos + 1, .unicodeEscape)
    | some n => (stringUnits opening (pos + 6) (next :: rest)).map fun (ns, r) => (n :: ns, r)
  | '\\' :: 'u' :: _ => .error (pos + 1, .unicodeEscape)
  | '\\' :: e :: rest =>
    match escaped? e with
    | none => .error (pos, .escape)
    | some c => (stringUnits opening (pos + 2) rest).map fun (ns, r) => (c.toNat :: ns, r)
  | ['\\'] => .error (opening, .unterminatedString)
  | c :: rest =>
    if c.toNat < 0x20 then .error (pos, .controlCharacter)
    else (stringUnits opening (pos + 1) rest).map fun (ns, r) => (c.toNat :: ns, r)

/-! ## Numbers and words -/

/-- A part of a number: as it is written, and what follows. -/
abbrev Span := Text × Text

def digits (t : Text) : Span := (t.takeWhile Char.isDigit, t.dropWhile Char.isDigit)

/-- No digit may follow a leading zero. -/
def wholePart? : Text → Option Span
  | '0' :: t => some (['0'], t)
  | t => match digits t with
    | ([], _) => none
    | span => some span

def fraction? : Text → Option Span
  | '.' :: t => match digits t with
    | ([], _) => none
    | span => some span
  | _ => none

def exponent? : Text → Option (Text × Int × Text)
  | e :: t =>
    if e = 'e' ∨ e = 'E' then
      let (sign, body) : Span :=
        match t with
        | '-' :: u => (['-'], u)
        | '+' :: u => (['+'], u)
        | _ => ([], t)
      match digits body with
      | ([], _) => none
      | (ds, rest) =>
        let value : Int := Text.digitsValue ds
        some (e :: sign ++ ds, if sign = ['-'] then -value else value, rest)
    else none
  | [] => none

/-- The longest number that `t` begins with, how many characters it takes, and what follows. -/
def number? (t : Text) : Option (Scalar × Nat × Text) := do
  let (sign, body) : Span :=
    match t with
    | '-' :: u => (['-'], u)
    | _ => ([], t)
  let (whole, rest) ← wholePart? body
  let (point, part, rest) :=
    match fraction? rest with
    | some (ds, rest) => ((['.'] : Text), ds, rest)
    | none => ([], [], rest)
  let (mark, power, rest) :=
    match exponent? rest with
    | some found => found
    | none => ([], 0, rest)
  let negative := sign = ['-']
  let value : Scalar :=
    if point = [] ∧ mark = [] then .int negative whole
    else
      .decimal {
        negative
        coefficient := Text.digitsValue (whole ++ part)
        exponent := power - part.length }
  return (value, (sign ++ whole ++ point ++ part ++ mark).length, rest)

def words : List (Text × Scalar) :=
  [("null", .null), ("true", .bool true), ("false", .bool false), ("NaN", .nan),
    ("Infinity", .infinity false), ("-Infinity", .infinity true)]

def word? (t : Text) : Option (Scalar × Nat × Text) :=
  words.findSome? fun (w, s) => (Text.after? w t).map (s, w.length, ·)

/-! ## The cut -/

/-- The token that starts with `c` at offset `pos`, the offset after it, and what follows. -/
def token (pos : Nat) (c : Char) (t : Text) : Token × Nat × Text :=
  match c with
  | '[' => (.openArray, pos + 1, t)
  | ']' => (.closeArray, pos + 1, t)
  | '{' => (.openObject, pos + 1, t)
  | '}' => (.closeObject, pos + 1, t)
  | ':' => (.colon, pos + 1, t)
  | ',' => (.comma, pos + 1, t)
  | '"' =>
    match stringUnits pos (pos + 1) t with
    | .ok (units, after, rest) => (.scalar (.ofUnits units), after, rest)
    | .error (at_, problem) => (.broken at_ problem, pos, [])
  | _ =>
    match (word? (c :: t)).orElse fun _ => number? (c :: t) with
    | some (s, width, rest) => (.scalar s, pos + width, rest)
    | none => (.broken pos .expectedValue, pos, [])

/-- The tokens of a text from offset `pos` on.  Every step takes a character, so `fuel` beyond the
length of the text is never used up. -/
def tokensFrom : (fuel pos : Nat) → Text → List (Nat × Token)
  | 0, _, _ => []
  | _ + 1, pos, [] => [(pos, .endOfText)]
  | fuel + 1, pos, c :: t =>
    if isSpace c then tokensFrom fuel (pos + 1) t
    else
      match token pos c t with
      | (.broken at_ problem, _, _) => [(pos, .broken at_ problem)]
      | (tok, after, rest) => (pos, tok) :: tokensFrom fuel after rest

def tokens (t : Text) : List (Nat × Token) := tokensFrom (t.length + 1) 0 t

end EmulationBindings.Json
