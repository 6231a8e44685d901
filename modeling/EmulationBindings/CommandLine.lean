import EmulationBindings.Generation
import EmulationBindings.Options.Basic
import EmulationBindings.Options.Help

/-!
# The command

One call of the command: its settings and arguments make a request, the request is run, and the
end of the run decides the exit status and what is printed.
-/

namespace EmulationBindings

structure CommandLine where
  environment : EnvFile.Environment
  arguments : List Text

namespace CommandLine

/-- How a call ends: with an exit status, or by a fault that nobody turns into one. -/
inductive Ending where
  | status (code : Nat)
  | refused (refusal : Refusal)
  | badSettings (fault : Utf8.Fault)
  deriving DecidableEq

structure Result where
  ending : Ending
  stdout : Text
  stderr : Text
  world : World

/-- What the reader of an environment file says of a line that it cannot read. -/
def unreadableLine (line : Nat) : Text :=
  "python-dotenv could not parse statement starting at line " ++ Text.ofNat line ++ "\n"

def shown (verbose : Bool) (es : List Event) : Text :=
  (es.filter fun e => verbose || e.severity ≠ .debug).flatMap fun e => e.line ++ "\n"

def request (c : Options.Choice) (tool : Text) (directory : Path) : Request where
  directory := directory
  tool := tool
  trackSource := if c.trackSource then some true else none
  check := c.check
  report := c.report

/-- The run that the arguments ask for.  Without a command nothing is run, and without a directory
the run, which takes place in one called `[]`, has no place for its documents. -/
def generate (site : Site) (c : Options.Choice) (directory : Options.Given Path) :
    Action Report :=
  match c.tool, directory with
  | .nothing, _ => Action.refuse .noTool
  | .value tool, .value directory => Generation.run site (request c tool directory)
  | .value tool, .nothing => do
    let _ ← Generation.survey site (request c tool (Path.ofText "[]"))
    Action.refuse .noDirectory

def printed (ls : List Text) : Text := ls.flatMap (· ++ "\n")

def perform (site : Site) (c : Options.Choice) (d : Disk) : Result :=
  match c.directory with
  | none => {
      ending := .status 1
      stdout := []
      stderr := shown c.verbose [.directoryMissing]
      world := { disk := d } }
  | some directory =>
    match (generate site c directory).result { disk := d } with
    | (.ok report, world) => {
        ending := .status 0
        stdout := printed report.directives
        stderr := shown c.verbose world.journal
        world }
    | (.error (.failed f), world) => {
        ending := .status 1
        stdout := []
        stderr := shown c.verbose (world.journal ++ [.runFailed f])
        world }
    | (.error (.refused r), world) => {
        ending := .refused r
        stdout := []
        stderr := shown c.verbose world.journal
        world }

def run (site : Site) (call : CommandLine) (d : Disk) : Result :=
  match Settings.load call.environment d site.cwd with
  | .error fault =>
    { ending := .badSettings fault, stdout := [], stderr := [], world := { disk := d } }
  | .ok loaded =>
    let warnings := loaded.unreadableLines.flatMap unreadableLine
    let result :=
      match Options.parse loaded.settings call.arguments with
      | .ok c => perform site c d
      | .error .help => {
          ending := .status 0, stdout := Options.help, stderr := []
          world := { disk := d } }
      | .error (.misuse m) => {
          ending := .status 2, stdout := []
          stderr := Options.usage ++ Options.program ++ ": error: " ++ m.text ++ "\n"
          world := { disk := d } }
    { result with stderr := warnings ++ result.stderr }

/-- What the arguments ask for, unless settings or arguments end the call before any run. -/
def choice? (call : CommandLine) (cwd : Location) (d : Disk) : Option Options.Choice :=
  match Settings.load call.environment d cwd with
  | .error _ => none
  | .ok loaded => (Options.parse loaded.settings call.arguments).toOption

def runs (call : CommandLine) (cwd : Location) (d : Disk) : Bool :=
  ((call.choice? cwd d).bind (·.directory)).isSome

/-- The file that holds the table, when the build tool's answer names it. -/
def source? (r : Recipe) (outcome : Metadata.Outcome) : Option Path :=
  match outcome.metadata with
  | .error _ => none
  | .ok ms =>
    (Metadata.findPackage (.object ms) r.dependency).toOption.map (·.tablePath r.subpath)

def files (call : CommandLine) (site : Site) (d : Disk) : List Path :=
  let source := (source? Recipe.standard site.outcome).toList
  match call.choice? site.cwd d with
  | some { directory := some (.value directory), tool := .value tool, report, .. } =>
    let q : Request := { directory, tool, report }
    source ++ (Generation.artifacts q [] []).map (·.path) ++ report.toList
  | _ => source

end CommandLine

end EmulationBindings
