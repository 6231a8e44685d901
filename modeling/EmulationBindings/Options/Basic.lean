import EmulationBindings.Path.Basic
import EmulationBindings.Settings.Basic
import EmulationBindings.Text.Digits
import EmulationBindings.Text.Quoted

/-!
# Options

Reading the arguments of the command.  A long option may be shortened to any beginning that no
other option shares and may carry its value after `=`; short options may be written together.
Every argument is first told apart as an option or not, so an ambiguous one is refused before any
option takes effect.
-/

namespace EmulationBindings.Options

inductive Flag where
  | help
  | directory
  | tool
  | trackSource
  | check
  | report
  | verbose
  deriving DecidableEq

/-- Every spelling, in the order in which the options are declared. -/
def spellings : List (Text × Flag) := [
  ("-h", .help), ("--help", .help), ("--manifest-dir", .directory), ("--cargo", .tool),
  ("--track-source", .trackSource), ("--check", .check), ("--report", .report),
  ("-v", .verbose), ("--verbose", .verbose)]

def Flag.takesValue : Flag → Bool
  | .directory | .tool | .report => true
  | _ => false

/-- All spellings of an option, as messages name it. -/
def Flag.title (f : Flag) : Text :=
  List.intercalate ['/'] ((spellings.filter (·.2 = f)).map (·.1))

inductive Misuse where
  | ambiguous (argument : Text) (candidates : List Text)
  | ignoredValue (flag : Flag) (value : Text)
  | missingValue (flag : Flag)
  | unrecognized (arguments : List Text)
  deriving DecidableEq

def Misuse.text : Misuse → Text
  | .ambiguous argument candidates =>
    "ambiguous option: " ++ argument ++ " could match " ++ Text.commas candidates
  | .ignoredValue flag value =>
    "argument " ++ flag.title ++ ": ignored explicit argument " ++ Text.quoted value
  | .missingValue flag => "argument " ++ flag.title ++ ": expected one argument"
  | .unrecognized arguments => "unrecognized arguments: " ++ List.intercalate [' '] arguments

/-! ## Telling arguments apart -/

/-- What an argument is: a plain one, which can be the value of an option; an option under one of
its spellings with the value attached to it; an option that nobody declared; or the separator
after which all arguments are plain. -/
inductive Kind where
  | plain
  | known (flag : Flag) (long : Bool) (attached : Option Text)
  | unknown
  | separator
  deriving DecidableEq

def isLong (spelling : Text) : Bool := (Text.after? "--" spelling).isSome

def splitValue (t : Text) : Text × Option Text :=
  match Text.cut? "=" t with
  | some (before, value) => (before, some value)
  | none => (t, none)

/-- An optional fraction point with digits after it, behind a minus sign.  A line feed at the end
makes no difference. -/
def isNegativeNumber (t : Text) : Bool :=
  let t := if t.getLast? = some '\n' then t.dropLast else t
  match t with
  | '-' :: body =>
    match body.dropWhile Text.isScriptDigit with
    | [] => body ≠ []
    | '.' :: part => part ≠ [] && part.all Text.isScriptDigit
    | _ => false
  | _ => false

def candidates (t : Text) : List (Text × Flag × Option Text) :=
  if isLong t then
    let (start, value) := splitValue t
    spellings.filterMap fun (spelling, flag) =>
      if (Text.after? start spelling).isSome then some (spelling, flag, value) else none
  else
    spellings.filterMap fun (spelling, flag) =>
      if spelling = t.take 2 then some (spelling, flag, some (t.drop 2))
      else if (Text.after? t spelling).isSome then some (spelling, flag, none)
      else none

def kind (t : Text) : Except Misuse Kind :=
  match t with
  | '-' :: _ :: _ =>
    let known (spelling : Text) (flag : Flag) (value : Option Text) : Except Misuse Kind :=
      .ok (.known flag (isLong spelling) value)
    match spellings.lookup t, splitValue t with
    | some flag, _ => known t flag none
    | none, (start, value) =>
      match value, spellings.lookup start with
      | some _, some flag => known start flag value
      | _, _ =>
        match candidates t with
        | [] =>
          .ok (if isNegativeNumber t || t.contains ' ' then .plain else .unknown)
        | [(spelling, flag, value)] => known spelling flag value
        | several => .error (.ambiguous t (several.map (·.1)))
  | _ => .ok .plain

def kinds : List Text → Except Misuse (List (Text × Kind))
  | [] => .ok []
  | t :: rest =>
    if t = "--" then .ok ((t, .separator) :: rest.map fun u => (u, .plain))
    else do
      let k ← kind t
      return (t, k) :: (← kinds rest)

/-! ## Taking options -/

/-- What an option is given.  The separator is no value, so an option to which it is attached is
given nothing. -/
inductive Given (α : Type) where
  | value (a : α)
  | nothing
  deriving DecidableEq

structure Choice where
  directory : Option (Given Path)
  tool : Given Text
  trackSource : Bool := false
  check : Bool := false
  report : Option Path := none
  verbose : Bool := false
  deriving DecidableEq

def Choice.initial (s : Settings) : Choice where
  directory :=
    match s.directory with
    | some t => if t = [] then none else some (.value (Path.ofText t))
    | none => none
  tool := .value s.tool

/-- Reading ends early when help is asked for or an argument is wrong. -/
inductive Ending where
  | help
  | misuse (m : Misuse)
  deriving DecidableEq

def Given.ofText (t : Text) : Given Text := if t = "--" then .nothing else .value t

def Choice.setValue (c : Choice) (flag : Flag) (given : Given Text) : Choice :=
  match flag, given with
  | .directory, .value t => { c with directory := some (.value (Path.ofText t)) }
  | .directory, .nothing => { c with directory := some .nothing }
  | .tool, _ => { c with tool := given }
  | .report, .value t => { c with report := some (Path.ofText t) }
  | .report, .nothing => { c with report := none }
  | _, _ => c

def Choice.setSwitch (c : Choice) : Flag → Except Ending Choice
  | .help => .error .help
  | .trackSource => .ok { c with trackSource := true }
  | .check => .ok { c with check := true }
  | .verbose => .ok { c with verbose := true }
  | _ => .ok c

/-- The short options written together behind `flag`.  A letter that is none of them makes the
letters from it on a value, which the option before it does not take. -/
def bundle (flag : Flag) : Text → Except Misuse (List Flag)
  | [] => .ok [flag]
  | c :: rest =>
    match spellings.lookup ['-', c] with
    | none => .error (.ignoredValue flag (c :: rest))
    | some next => (bundle next rest).map (flag :: ·)

def switches (flag : Flag) (long : Bool) : Option Text → Except Misuse (List Flag)
  | none => .ok [flag]
  | some value =>
    if long || value = [] then .error (.ignoredValue flag value) else bundle flag value

/-- Takes the arguments in order, and gathers those that belong to no option. -/
def take (c : Choice) (extras : List Text) :
    List (Text × Kind) → Except Ending (Choice × List Text)
  | [] => .ok (c, extras)
  | (_, .known flag long attached) :: rest =>
    if flag.takesValue then
      match attached, rest with
      | some value, rest => take (c.setValue flag (.ofText value)) extras rest
      | none, (value, .plain) :: rest => take (c.setValue flag (.value value)) extras rest
      | none, _ => .error (.misuse (.missingValue flag))
    else
      match switches flag long attached with
      | .error m => .error (.misuse m)
      | .ok flags => do
        let c ← flags.foldlM Choice.setSwitch c
        take c extras rest
  | (t, _) :: rest => take c (extras ++ [t]) rest

def parse (s : Settings) (arguments : List Text) : Except Ending Choice :=
  match kinds arguments with
  | .error m => .error (.misuse m)
  | .ok ks =>
    match take (Choice.initial s) [] ks with
    | .error e => .error e
    | .ok (c, []) => .ok c
    | .ok (_, extras) => .error (.misuse (.unrecognized extras))

end EmulationBindings.Options
