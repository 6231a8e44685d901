import EmulationBindings.Metadata.Package
import EmulationBindings.Disk.Access
import EmulationBindings.Document.Basic
import EmulationBindings.Json.Decoder
import EmulationBindings.Text.Utf8

/-!
# Failures

Every failure of a run has a cause, and its cause fixes the stage at which the run stopped and the
message that the build log shows.  A fault that belongs to no stage ends a run without a stage.
-/

namespace EmulationBindings

inductive Stage where
  | metadataUnavailable
  | dependencyNotFound
  | malformedMetadata
  | sourceUnreadable
  | emptyExtraction
  | writeFailure
  | staleArtifact
  deriving DecidableEq

def Stage.name : Stage → Text
  | .metadataUnavailable => "METADATA_UNAVAILABLE"
  | .dependencyNotFound => "DEPENDENCY_NOT_FOUND"
  | .malformedMetadata => "MALFORMED_METADATA"
  | .sourceUnreadable => "SOURCE_UNREADABLE"
  | .emptyExtraction => "EMPTY_EXTRACTION"
  | .writeFailure => "WRITE_FAILURE"
  | .staleArtifact => "STALE_ARTIFACT"

def Stage.tag (s : Stage) (message : Text) : Text := s.name ++ ": " ++ message

inductive Failure where
  /-- The build tool could not be started. -/
  | unstarted (error : SystemError)
  | exited (code : Int) (stderr : Text)
  | outputEncoding (fault : Utf8.Fault)
  | outputSyntax (fault : Json.SyntaxFault)
  /-- The metadata is a JSON value of another kind than an object. -/
  | notObject (kind : Text)
  | lookup (fault : Metadata.LookupFault)
  | sourceAccess (path : Path) (error : SystemError)
  | sourceEncoding (path : Path) (fault : Utf8.Fault)
  /-- A scan found no name. -/
  | noNames (kind dependency : Text)
  | artifactAccess (kind : Text) (path : Path) (error : SystemError)
  | reportAccess (path : Path) (error : SystemError)
  /-- In check mode, these files differ from what would be written. -/
  | outOfDate (paths : List Path)
  deriving DecidableEq

namespace Failure

def stage : Failure → Stage
  | .unstarted _ | .exited _ _ | .outputEncoding _ | .outputSyntax _ => .metadataUnavailable
  | .notObject _ | .lookup (.shape _) | .lookup (.package _ _) => .malformedMetadata
  | .lookup (.absent _) => .dependencyNotFound
  | .sourceAccess _ _ | .sourceEncoding _ _ => .sourceUnreadable
  | .noNames _ _ => .emptyExtraction
  | .artifactAccess _ _ _ | .reportAccess _ _ => .writeFailure
  | .outOfDate _ => .staleArtifact

def message : Failure → Text
  | .unstarted e => "Failed to run cargo metadata: " ++ e.text
  | .exited code stderr => "cargo metadata exited with " ++ Text.ofInt code ++ ": " ++ stderr
  | .outputEncoding f => "cargo metadata output is not valid UTF-8: " ++ f.text
  | .outputSyntax f => "Failed to parse cargo metadata JSON: " ++ f.text
  | .notObject kind => "cargo metadata is a " ++ kind ++ ", expected an object"
  | .lookup (.shape f) => "Unexpected cargo metadata shape: " ++ f.text
  | .lookup (.package name f) => "Unexpected metadata for " ++ name.shown ++ ": " ++ f.text
  | .lookup (.absent name) => name.shown ++ " package not found in cargo metadata"
  | .sourceAccess path e => "Failed to read " ++ path.text ++ ": " ++ e.text
  | .sourceEncoding path f => path.text ++ " is not valid UTF-8: " ++ f.text
  | .noNames kind dependency => "No " ++ kind ++ " found in " ++ dependency ++ " source"
  | .artifactAccess kind path e =>
    "Failed to write " ++ kind ++ " output " ++ path.text ++ ": " ++ e.text
  | .reportAccess path e => "Failed to write report " ++ path.text ++ ": " ++ e.text
  | .outOfDate paths =>
    "Generated files are out of date: " ++ Text.commas (paths.map Path.text)

def text (f : Failure) : Text := f.stage.tag f.message

end Failure

/-- A fault outside all stages. -/
inductive Refusal where
  /-- A path, or the command of the build tool, has a NUL character in it. -/
  | nulInPath
  | unencodablePath (position : Nat) (surrogates : List Nat)
  | tooDeep
  | longInteger (digits : Nat)
  | emptyTable (table : Document.EmptyTable)
  /-- An option was given nothing where the run needs a command. -/
  | noTool
  /-- An option was given nothing where the run needs a directory. -/
  | noDirectory
  deriving DecidableEq

/-- Which characters these are, and where. -/
def Refusal.place (position : Nat) : List Nat → Text
  | [n] => " '" ++ Json.unitEscape n ++ "' in position " ++ Text.ofNat position
  | ns => "s in position " ++ Text.ofNat position ++ "-" ++
    Text.ofNat (position + ns.length - 1)

def Refusal.text : Refusal → Text
  | .nulInPath => "embedded null byte"
  | .unencodablePath position surrogates =>
    "'utf-8' codec can't encode character" ++ Refusal.place position surrogates ++
      ": surrogates not allowed"
  | .tooDeep => "maximum recursion depth exceeded while calling a Python object"
  | .longInteger n =>
    "Exceeds the limit (" ++ Text.ofNat Json.maxDigits ++
      " digits) for integer string conversion: value has " ++ Text.ofNat n ++
      " digits; use sys.set_int_max_str_digits() to increase the limit"
  | .emptyTable table => table.text
  | .noTool => "sequence item 0: expected str instance, list found"
  | .noDirectory => "unsupported operand type(s) for /: 'list' and 'str'"

/-- How a run can stop before its end. -/
inductive Stop where
  | failed (failure : Failure)
  | refused (refusal : Refusal)
  deriving DecidableEq

/-- The error of the system that a fault comes down to.  Without one it belongs to no stage. -/
def AccessFault.cause : AccessFault → Except Refusal SystemError
  | .nul => .error .nulInPath
  | .unencodable position surrogates => .error (.unencodablePath position surrogates)
  | .tooDeep => .error .tooDeep
  | .blocked o path => .ok (o.error path)
  | .system e => .ok e

end EmulationBindings
