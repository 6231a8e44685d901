import EmulationBindings.Disk.Basic
import EmulationBindings.Path.Basic
import EmulationBindings.Text.Quoted

/-!
# Files and directories by path

Following a path from the working directory, and reading, writing and making what it leads to.
Every name but the last has to be a directory; `..` is the directory above the one reached, so a
path through something that is not there leads nowhere even when `..` comes next.

A file is written in two steps, and the system around the disk can stop it in either.  Opening the
file takes its old content away, so a write that is stopped after that leaves the beginning of the
new content.
-/

namespace EmulationBindings

/-- An error as the operating system reports it. -/
structure SystemError where
  number : Int
  phrase : Text
  subject : Option Text := none
  deriving DecidableEq

def SystemError.text (e : SystemError) : Text :=
  "[Errno " ++ Text.ofInt e.number ++ "] " ++ e.phrase ++
    match e.subject with
    | some s => ": " ++ Text.quoted s
    | none => []

/-- What keeps a path from being read, written or made. -/
inductive Obstacle where
  | missing
  | occupied
  | notDirectory
  | isDirectory
  | nameTooLong
  deriving DecidableEq

def Obstacle.number : Obstacle → Int
  | .missing => 2
  | .occupied => 17
  | .notDirectory => 20
  | .isDirectory => 21
  | .nameTooLong => 36

def Obstacle.phrase : Obstacle → Text
  | .missing => "No such file or directory"
  | .occupied => "File exists"
  | .notDirectory => "Not a directory"
  | .isDirectory => "Is a directory"
  | .nameTooLong => "File name too long"

/-- A path that could not be used.  One with a NUL character or a lone surrogate is turned down
before it reaches the disk.  Any other meets an obstacle, at the path itself or at a parent that had
to be made, or an error of the system. -/
inductive AccessFault where
  | nul
  /-- From this position on, these surrogates have no partner. -/
  | unencodable (position : Nat) (surrogates : List Nat)
  /-- More directories are missing than can be made together. -/
  | tooDeep
  | blocked (obstacle : Obstacle) (path : Path)
  | system (error : SystemError)
  deriving DecidableEq

/-- What the system does to the writing of a file that could be written: it does not open the file,
or it takes only the first bytes of the new content. -/
inductive WriteFault where
  | unopened (error : SystemError)
  | stopped (kept : Nat) (error : SystemError)
  deriving DecidableEq

/-- What the system does when this is to be written to the file at this location. -/
abbrev Trouble := Location → Bytes → Option WriteFault

def Trouble.none : Trouble := fun _ _ => .none

def Obstacle.error (o : Obstacle) (path : Path) : SystemError :=
  { number := o.number, phrase := o.phrase, subject := some path.text }

def Path.hasNul (p : Path) : Bool := p.names.any (·.contains '\x00')

namespace Disk

/-- The longest name of a directory entry, in bytes. -/
def maxName : Nat := 255

/-- The longest path, in bytes. -/
def maxPath : Nat := 4095

/-- The location that names lead to from `l`.  Nothing needs to be there yet. -/
def follow (d : Disk) : Location → List Text → Except Obstacle Location
  | l, [] => .ok l
  | l, name :: rest =>
    match d.get? l with
    | none => .error .missing
    | some (.file _) => .error .notDirectory
    | some .directory =>
      if name = Path.dotDot then follow d l.dropLast rest
      else if maxName < (Utf8.encode name).length then .error .nameTooLong
      else follow d (l ++ [name]) rest

/-- Where a path begins: at the root, or in the working directory. -/
def origin (cwd : Location) : Anchor → Location
  | .relative => cwd
  | _ => []

def locate (d : Disk) (cwd : Location) (p : Path) : Except Obstacle Location :=
  if maxPath < (Utf8.encode p.text).length then .error .nameTooLong
  else follow d (origin cwd p.anchor) p.names

def nodeAt? (d : Disk) (cwd : Location) (p : Path) : Option Node :=
  match d.locate cwd p with
  | .ok l => d.get? l
  | .error _ => none

def read (d : Disk) (cwd : Location) (p : Path) : Except AccessFault Bytes :=
  if p.hasNul then .error .nul
  else
    match d.locate cwd p with
    | .error o => .error (.blocked o p)
    | .ok l =>
      match d.get? l with
      | none => .error (.blocked .missing p)
      | some .directory => .error (.blocked .isDirectory p)
      | some (.file content) => .ok content

/-- Fills the file at a location, new or in place of an old one, as far as the system lets it. -/
def fill (d : Disk) (l : Location) (content : Bytes) :
    Option WriteFault → Disk × Option AccessFault
  | none => (d.set l (.file content), none)
  | some (.unopened e) => (d, some (.system e))
  | some (.stopped kept e) => (d.set l (.file (content.take kept)), some (.system e))

/-- Writes a whole file.  Its directory has to be there. -/
def write (d : Disk) (cwd : Location) (trouble : Trouble) (p : Path) (content : Bytes) :
    Disk × Option AccessFault :=
  if p.hasNul then (d, some .nul)
  else
    match d.locate cwd p with
    | .error o => (d, some (.blocked o p))
    | .ok l =>
      match d.get? l with
      | some .directory => (d, some (.blocked .isDirectory p))
      | _ => d.fill l content (trouble l content)

def makeDirectory (d : Disk) (cwd : Location) (p : Path) : Except Obstacle Disk :=
  match d.locate cwd p with
  | .error o => .error o
  | .ok l =>
    match d.get? l with
    | some _ => .error .occupied
    | none => .ok (d.set l .directory)

def settle (d : Disk) (cwd : Location) (p : Path) : Disk × Option AccessFault :=
  match d.makeDirectory cwd p with
  | .ok d' => (d', none)
  | .error o => if d.nodeAt? cwd p = some .directory then (d, none) else (d, some (.blocked o p))

/-- Makes the directory with these names, last one first, and before it those above it that are
missing, up to `ascent` of them.  Directories made on the way stay when a later one fails. -/
def settleAll (d : Disk) (cwd : Location) (anchor : Anchor) :
    (ascent : Nat) → List Text → Disk × Option AccessFault
  | _, [] => d.settle cwd ⟨anchor, []⟩
  | ascent, last :: above =>
    let p : Path := ⟨anchor, (last :: above).reverse⟩
    match d.settle cwd p with
    | (_, some (.blocked .missing _)) =>
      match ascent with
      | 0 => (d, some .tooDeep)
      | ascent + 1 =>
        match settleAll d cwd anchor ascent above with
        | (d', none) => d'.settle cwd p
        | failed => failed
    | result => result
termination_by structural _ names => names

def ensureDirectory (d : Disk) (cwd : Location) (ascent : Nat) (p : Path) :
    Disk × Option AccessFault :=
  if p.hasNul then (d, some .nul) else d.settleAll cwd p.anchor ascent p.names.reverse

end Disk

end EmulationBindings
