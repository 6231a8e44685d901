import EmulationBindings.Action
import EmulationBindings.Text.Blank

/-!
# Locating the table

Asks the build tool for its metadata once, looks the dependency up in it, and names the file that
holds the table.
-/

namespace EmulationBindings.Metadata

/-- What a JSON value that is no object is called in a message. -/
def kindName : Json → Text
  | .null => "NoneType"
  | .bool _ => "bool"
  | .int _ => "int"
  | .decimal _ | .nan | .infinity _ => "float"
  | .string _ | .unpaired _ => "str"
  | .array _ => "list"
  | .object _ => "dict"

def readMetadata (stdout : Bytes) : Except Stop Json.Members :=
  match Utf8.decode stdout with
  | .error f => .error (.failed (.outputEncoding f))
  | .ok t =>
    match Json.decode t with
    | .error (.malformed f) => .error (.failed (.outputSyntax f))
    | .error (.longInteger n) => .error (.refused (.longInteger n))
    | .ok (.object ms) => .ok ms
    | .ok v => .error (.failed (.notObject (kindName v)))

def Outcome.metadata : Outcome → Except Stop Json.Members
  | .unstarted e => .error (.failed (.unstarted e))
  | .ended code stdout stderr =>
    if code ≠ 0 then .error (.failed (.exited code (Text.strip (Utf8.decodeLenient stderr))))
    else readMetadata stdout

/-- How the build tool is called. -/
def metadataCall (directory : Path) (tool : Text) : Call where
  command := metadataCommand tool
  directory := directory

def query (site : Site) (directory : Path) (tool : Text) : Action Json.Members := do
  let call := metadataCall directory tool
  Action.note (.toolStarted call.command)
  Action.called call
  if call.hasNul then Action.refuse .nulInPath
  site.outcome.metadata

def locate (site : Site) (directory : Path) (r : Recipe) (tool : Text) :
    Action (Package × Path) := do
  let metadata ← query site directory tool
  let package ← Action.ofExcept .lookup (findPackage (.object metadata) r.dependency)
  let path := package.tablePath r.subpath
  Action.note (.packageFound package path)
  return (package, path)

end EmulationBindings.Metadata
