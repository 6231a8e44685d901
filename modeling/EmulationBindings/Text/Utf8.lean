import EmulationBindings.Text.Basic

/-!
# UTF-8

Texts as bytes.  Decoding first cuts the bytes into segments, each a character or a maximal
ill-formed run; the strict decoder stops at the first ill-formed one and the lenient decoder
writes U+FFFD for each.
-/

namespace EmulationBindings

abbrev Bytes := List UInt8

namespace Utf8

def encodeChar (c : Char) : Bytes :=
  let n := c.toNat
  if n < 0x80 then [.ofNat n]
  else if n < 0x800 then [.ofNat (0xC0 + n / 0x40), .ofNat (0x80 + n % 0x40)]
  else if n < 0x10000 then
    [.ofNat (0xE0 + n / 0x1000), .ofNat (0x80 + n / 0x40 % 0x40), .ofNat (0x80 + n % 0x40)]
  else
    [.ofNat (0xF0 + n / 0x40000), .ofNat (0x80 + n / 0x1000 % 0x40),
      .ofNat (0x80 + n / 0x40 % 0x40), .ofNat (0x80 + n % 0x40)]

def encode (t : Text) : Bytes := t.flatMap encodeChar

inductive Reason where
  | invalidStart
  | invalidContinuation
  | unexpectedEnd
  deriving DecidableEq

inductive Segment where
  | scalar (c : Char)
  | illFormed (run : Bytes) (reason : Reason)
  deriving DecidableEq

/-- A sequence that has begun: its bytes so far and their value, the range that the next byte has
to lie in, and how many more follow after that one. -/
structure Pending where
  run : Bytes
  value : Nat
  low : Nat := 0x80
  high : Nat := 0xBF
  more : Nat
  deriving DecidableEq

/-- The first byte of a sequence fixes its length.  The range of the second byte rules out
overlong forms, surrogates and values above U+10FFFF. -/
def start (b : UInt8) : List Segment × Option Pending :=
  let n := b.toNat
  if n < 0x80 then ([.scalar (.ofNat n)], none)
  else if n < 0xC2 then ([.illFormed [b] .invalidStart], none)
  else if n < 0xE0 then ([], some { run := [b], value := n - 0xC0, more := 0 })
  else if n < 0xF0 then
    ([], some {
      run := [b], value := n - 0xE0, more := 1
      low := if n = 0xE0 then 0xA0 else 0x80
      high := if n = 0xED then 0x9F else 0xBF })
  else if n < 0xF5 then
    ([], some {
      run := [b], value := n - 0xF0, more := 2
      low := if n = 0xF0 then 0x90 else 0x80
      high := if n = 0xF4 then 0x8F else 0xBF })
  else ([.illFormed [b] .invalidStart], none)

/-- Takes one more byte: the segments that it completes, and the sequence then pending. -/
def feed : Option Pending → UInt8 → List Segment × Option Pending
  | none, b => start b
  | some p, b =>
    if p.low ≤ b.toNat ∧ b.toNat ≤ p.high then
      let value := p.value * 0x40 + (b.toNat - 0x80)
      match p.more with
      | 0 => ([.scalar (.ofNat value)], none)
      | k + 1 => ([], some { run := p.run ++ [b], value, more := k })
    else
      let (segments, next) := start b
      (.illFormed p.run .invalidContinuation :: segments, next)

def segmentsFrom : Option Pending → Bytes → List Segment
  | none, [] => []
  | some p, [] => [.illFormed p.run .unexpectedEnd]
  | state, b :: bs => (feed state b).1 ++ segmentsFrom (feed state b).2 bs

def segments (bs : Bytes) : List Segment := segmentsFrom none bs

/-- The first ill-formed run of some bytes, and how many bytes stand before it. -/
structure Fault where
  offset : Nat
  run : Bytes
  reason : Reason
  deriving DecidableEq

def Reason.text : Reason → Text
  | .invalidStart => "invalid start byte"
  | .invalidContinuation => "invalid continuation byte"
  | .unexpectedEnd => "unexpected end of data"

def Fault.text (f : Fault) : Text :=
  let place :=
    match f.run with
    | [b] => "byte 0x" ++ Text.hex 2 b.toNat ++ " in position " ++ Text.ofNat f.offset
    | run =>
      "bytes in position " ++ Text.ofNat f.offset ++ "-" ++
        Text.ofNat (f.offset + run.length - 1)
  "'utf-8' codec can't decode " ++ place ++ ": " ++ f.reason.text

def collect (offset : Nat) : List Segment → Except Fault Text
  | [] => .ok []
  | .scalar c :: rest => (collect (offset + (encodeChar c).length) rest).map (c :: ·)
  | .illFormed run reason :: _ => .error { offset, run, reason }

def decode (bs : Bytes) : Except Fault Text := collect 0 (segments bs)

/-- Decodes with U+FFFD in the place of every ill-formed run. -/
def decodeLenient (bs : Bytes) : Text :=
  (segments bs).map fun
    | .scalar c => c
    | .illFormed _ _ => '\uFFFD'

end Utf8

end EmulationBindings
