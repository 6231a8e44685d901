import EmulationBindings.Recipe
import EmulationBindings.Table.Entry
import EmulationBindings.Text.Lines

/-!
# Scanning the table

Profile names stand anywhere in the source, one on each line that has the profile marker and a
quote after it.  Operating systems stand in one block, which a scanner finds line by line: it
waits for the sentinel line, then for the line that names the type, collects until the block
ends, and takes nothing after that.
-/

namespace EmulationBindings.Table

def profileNames (r : Recipe) (source : Text) : List Text :=
  (Text.lines source).filterMap (quotedAfter? r.profileMarker)

inductive Phase where
  | seeking
  | awaiting
  | inside
  | done
  deriving DecidableEq

def Phase.name : Phase → Text
  | .seeking => "SEEKING"
  | .awaiting => "AWAITING_BLOCK_START"
  | .inside => "IN_BLOCK"
  | .done => "DONE"

structure Scanner where
  phase : Phase := .seeking
  names : List Text := []
  deriving DecidableEq

namespace Scanner

/-- Takes one line.  The line that opens the block gives no name, nor does the one that ends it,
and a repeated sentinel line never opens the block. -/
def feed (r : Recipe) (s : Scanner) (line : Text) : Scanner :=
  match s.phase with
  | .seeking => if Text.occurs r.plainMarker line then { s with phase := .awaiting } else s
  | .awaiting =>
    if !Text.occurs r.plainMarker line && Text.occurs r.systemType line then
      { s with phase := .inside }
    else s
  | .inside =>
    if Text.occurs r.blockEnd line then { s with phase := .done }
    else { s with names := s.names ++ (quotedAfter? r.systemMarker line).toList }
  | .done => s

def feedAll (r : Recipe) (s : Scanner) : List Text → Scanner
  | [] => s
  | line :: rest =>
    let s' := s.feed r line
    if s'.phase = .done then s' else feedAll r s' rest

end Scanner

def scanSystems (r : Recipe) (source : Text) : Scanner :=
  Scanner.feedAll r {} (Text.lines source)

def systemNames (r : Recipe) (source : Text) : List Text := (scanSystems r source).names

/-- Scanners by number, each made at its first use. -/
abbrev Scanners := List (Int × Scanner)

namespace Scanners

def get (t : Scanners) (id : Int) : Scanner := (t.lookup id).getD {}

def put (t : Scanners) (id : Int) (s : Scanner) : Scanners :=
  (id, s) :: t.filter fun e => e.1 ≠ id

def feed (r : Recipe) (t : Scanners) (id : Int) (line : Text) : Scanners :=
  t.put id ((t.get id).feed r line)

/-- The scanner of every step's number just after that step. -/
def trace (r : Recipe) (t : Scanners) : List (Int × Text) → List (Int × Scanner)
  | [] => []
  | (id, line) :: rest => (id, (t.get id).feed r line) :: trace r (t.feed r id line) rest

end Scanners

end EmulationBindings.Table
