import EmulationBindings.CommandLine

/-!
# The program

Reads what the build tool printed from standard input, takes the files that the call is about from
the disk, performs the call on them, and puts what has changed back.

    cargo metadata --format-version 1 | emulation-codegen --manifest-dir DIR
-/

namespace EmulationBindings.Program

def toText (s : String) : Text := s.toList

def ofText (t : Text) : String := String.ofList t

def toBytes (b : ByteArray) : Bytes := b.toList

def ofBytes (bs : Bytes) : ByteArray := ⟨bs.toArray⟩

def probe (p : Path) : IO (Option Node) := do
  let file := (← IO.currentDir) / ofText p.text
  if ← file.isDir then return some .directory
  if ← file.pathExists then return some (.file (toBytes (← IO.FS.readBinFile file)))
  return none

def take (cwd : Location) (d : Disk) (p : Path) : IO Disk := do
  match d.locate cwd p with
  | .error _ => return d
  | .ok l =>
    if (d.get? l).isSome then return d
    match ← probe p with
    | some node => return d.set l node
    | none => return d

/-- Takes a path into the disk, and before it every path that leads to it. -/
def takeAll (cwd : Location) (d : Disk) (p : Path) : IO Disk :=
  ((List.range (p.names.length + 1)).map fun n => (⟨p.anchor, p.names.take n⟩ : Path)).foldlM
    (take cwd) d

def surroundings (cwd : Location) : Disk :=
  ((List.range cwd.length).map fun n => cwd.take (n + 1)).foldl (·.set · .directory) Disk.empty

/-- Puts what has changed back: directories before what they hold. -/
def restore (before after : Disk) : IO Unit := do
  let changed := after.entries.filter fun (l, n) => before.get? l ≠ some n
  let ordered := changed.mergeSort fun a b => a.1.length ≤ b.1.length
  for (l, n) in ordered do
    let path := ofText (Path.text ⟨.root, l⟩)
    match n with
    | .directory => IO.FS.createDir path
    | .file content => IO.FS.writeBinFile path (ofBytes content)

def environment : IO EnvFile.Environment := do
  let listed := Utf8.decodeLenient (toBytes (← IO.FS.readBinFile "/proc/self/environ"))
  return (listed.splitOn '\x00').filterMap (Text.cut? "=")

partial def readAll (input : IO.FS.Stream) (before : ByteArray) : IO ByteArray := do
  let chunk ← input.read 65536
  if chunk.isEmpty then return before
  readAll input (before ++ chunk)

def perform (call : CommandLine) : IO CommandLine.Result := do
  let cwd := Path.namesOf (toText (← IO.currentDir).toString)
  let d ← takeAll cwd (surroundings cwd) (Path.ofText ".env")
  let stdout ←
    if call.runs cwd d then readAll (← IO.getStdin) ByteArray.empty
    else pure ByteArray.empty
  let site : Site := { cwd, outcome := .ended 0 (toBytes stdout) [] }
  let d ← (call.files site d).foldlM (takeAll cwd) d
  let result := call.run site d
  restore d result.world.disk
  return result

end EmulationBindings.Program

open EmulationBindings in
def main (arguments : List String) : IO UInt32 := do
  let environment ← Program.environment
  let result ← Program.perform { environment, arguments := arguments.map Program.toText }
  (← IO.getStdout).putStr (Program.ofText result.stdout)
  (← IO.getStderr).putStr (Program.ofText result.stderr)
  match result.ending with
  | .status n => return n.toUInt32
  | .refused r =>
    (← IO.getStderr).putStrLn (Program.ofText r.text)
    return 1
  | .badSettings f =>
    (← IO.getStderr).putStrLn (Program.ofText f.text)
    return 1
