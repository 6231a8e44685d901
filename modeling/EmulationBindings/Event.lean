import EmulationBindings.Failure
import EmulationBindings.Table.Scanner

/-!
# Events

What a run notes as it goes.  An event knows what happened; its severity, its channel and its
wording follow from that.
-/

namespace EmulationBindings

inductive Severity where
  | debug
  | info
  | warning
  | error
  deriving DecidableEq

def Severity.name : Severity → Text
  | .debug => "DEBUG"
  | .info => "INFO"
  | .warning => "WARNING"
  | .error => "ERROR"

inductive Event where
  | toolStarted (command : List Text)
  | packageFound (package : Metadata.Package) (path : Path)
  | sourceRead (size : Nat) (path : Path)
  | profilesMatched (count : Nat)
  | systemsScanned (scanner : Table.Scanner)
  | duplicated (kind dependency : Text) (names : List Text)
  | tablesCounted (profiles systems : Nat)
  | artifactWritten (path : Path) (changed : Bool)
  | reportWritten (path : Path)
  | directoryMissing
  | runFailed (failure : Failure)
  deriving DecidableEq

namespace Event

def severity : Event → Severity
  | .sourceRead _ _ | .profilesMatched _ | .systemsScanned _ => .debug
  | .toolStarted _ | .packageFound _ _ | .tablesCounted _ _ | .artifactWritten _ _
  | .reportWritten _ => .info
  | .duplicated _ _ _ => .warning
  | .directoryMissing | .runFailed _ => .error

def channel : Event → Text
  | .toolStarted _ | .packageFound _ _ => "emulation_codegen.core.locator"
  | .sourceRead _ _ => "emulation_codegen.io.loader"
  | .profilesMatched _ | .systemsScanned _ => "emulation_codegen.core.extractor"
  | .duplicated _ _ _ => "emulation_codegen.policy.failure"
  | .artifactWritten _ _ => "emulation_codegen.io.writer"
  | .tablesCounted _ _ | .reportWritten _ | .directoryMissing | .runFailed _ =>
    "emulation_codegen.runner"

/-- A package without a version, or with an empty one, is shown as unversioned. -/
def versionText : Option Json.Str → Text
  | none => "(unversioned)"
  | some v => if v.shown = [] then "(unversioned)" else v.shown

def message : Event → Text
  | .toolStarted command => "Running " ++ List.intercalate " " command
  | .packageFound p path =>
    "Found " ++ p.name.shown ++ " " ++ versionText p.version ++ " at " ++ path.text
  | .sourceRead size path => "Read " ++ Text.ofNat size ++ " bytes from " ++ path.text
  | .profilesMatched n => "Pass A matched " ++ Text.ofNat n ++ " profile lines"
  | .systemsScanned s =>
    "Pass B finished in state " ++ s.phase.name ++ " with " ++ Text.ofNat s.names.length ++
      " names"
  | .duplicated kind dependency names =>
    "Duplicate " ++ kind ++ " in " ++ dependency ++ " source: " ++ Text.commas names
  | .tablesCounted profiles systems =>
    "Found " ++ Text.ofNat profiles ++ " browser profiles and " ++ Text.ofNat systems ++
      " operating systems"
  | .artifactWritten path changed =>
    "Wrote " ++ path.text ++ if changed then (" (changed)" : Text) else " (unchanged)"
  | .reportWritten path => "Wrote report to " ++ path.text
  | .directoryMissing =>
    "No manifest directory: pass --manifest-dir or set CARGO_MANIFEST_DIR"
  | .runFailed f => f.text

def line (e : Event) : Text :=
  e.severity.name ++ " " ++ e.channel ++ ": " ++ e.message

end Event

end EmulationBindings
