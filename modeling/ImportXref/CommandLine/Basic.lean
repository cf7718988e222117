import ImportXref.CommandLine.Reader
import ImportXref.Report.Export

/-!
# Commands — `scan` and `batch`

`scan` reads one project and writes its reports, `batch` does so for every project of a
configuration file.  `CommandLine.ofArguments` reads a command from the arguments of the program.
-/

namespace ImportXref

/-- What `scan` is asked to do. -/
structure ScanCommand where
  /-- The project root. -/
  root : Path
  /-- Source files and directories. -/
  sources : List Text
  /-- The name of the project, if it is not the root's. -/
  name : Option Text
  /-- The directory for the reports, if it is not the configured one. -/
  reportsDir : Option Path
  /-- Which reports are wanted. -/
  format : Format
  /-- Whether the JSON report shows every reference. -/
  unscoped : Bool
  /-- Whether the JSON report is printed and nothing is written. -/
  stdout : Bool
  /-- Whether the summary is JSON. -/
  json : Bool
  deriving DecidableEq, Repr

/-- A command. -/
inductive Command where
  | scan (c : ScanCommand)
  /-- Scans every project of a configuration file. -/
  | batch (config : Path) (json : Bool)
  deriving DecidableEq, Repr

/-- A command and how much of the log is shown. -/
structure CommandLine where
  /-- How often more of the log was asked for. -/
  verbose : Nat
  command : Command
  deriving DecidableEq, Repr

namespace CommandLine

open Arguments

/-- The name of the program. -/
def programName : Text := "py-xref".toList

/-- The version of the program. -/
def programVersion : Text := "0.1.0".toList

/-- What the program answers when its version is asked for. -/
def versionText (title : Text) : Text :=
  title ++ ' ' :: programVersion ++ ['\n']

/-- A text of at least one character, as paths are. -/
def isPathText (t : Text) : Bool :=
  t != []

/-- The format that a word names. -/
def format? (t : Text) : Option Format :=
  if t = "json".toList then some .json
  else if t = "html".toList then some .html
  else if t = "all".toList then some .all
  else none

/-! ### The shapes of the commands -/

/-- The most that is counted. -/
def maxVerbose : Nat := 255

/-- The flags of every command. -/
def commonFlags : List Flag :=
  [⟨"verbose".toList, some 'v', .counter⟩, ⟨"help".toList, some 'h', .help⟩,
    ⟨"version".toList, some 'V', .version⟩]

/-- The arguments of the program itself. -/
def programShape : Shape :=
  ⟨programName, commonFlags, [], ["scan".toList, "batch".toList, "help".toList]⟩

/-- The arguments of `scan`. -/
def scanShape : Shape where
  title := programName ++ "-scan".toList
  flags := commonFlags ++
    [⟨"name".toList, some 'n', .value fun _ => true⟩,
      ⟨"reports-dir".toList, some 'o', .value isPathText⟩,
      ⟨"format".toList, none, .value fun t => (format? t).isSome⟩,
      ⟨"unscoped".toList, none, .switch⟩, ⟨"stdout".toList, none, .switch⟩,
      ⟨"json".toList, none, .switch⟩]
  positions :=
    [⟨"root".toList, isPathText, false⟩, ⟨"sources".toList, fun _ => true, true⟩]
  subcommands := []

/-- The arguments of `batch`. -/
def batchShape : Shape where
  title := programName ++ "-batch".toList
  flags := commonFlags ++
    [⟨"config".toList, some 'c', .value isPathText⟩, ⟨"json".toList, none, .switch⟩]
  positions := []
  subcommands := []

/-! ### From arguments to a command -/

/-- How often `verbose` is given. -/
def verboseCount (g : Given) : Nat :=
  min (g.all "verbose".toList).length maxVerbose

/-- The `scan` command that was given.  A printed report excludes a choice of formats. -/
def scanOf (g : Given) : Except UsageError ScanCommand :=
  if g.has "stdout".toList && g.has "format".toList then .error .conflict
  else
    match g.value? "root".toList, g.all "sources".toList with
    | some root, source :: sources =>
      .ok {
        root := .ofText root
        sources := source :: sources
        name := g.value? "name".toList
        reportsDir := (g.value? "reports-dir".toList).map Path.ofText
        format := ((g.value? "format".toList).bind format?).getD .all
        unscoped := g.has "unscoped".toList
        stdout := g.has "stdout".toList
        json := g.has "json".toList }
    | _, _ => .error .missingArgument

/-- The `batch` command that was given. -/
def batchOf (g : Given) : Command :=
  .batch (.ofText ((g.value? "config".toList).getD "py-xref.toml".toList)) (g.has "json".toList)

/-- The count given with the subcommand, else the one given before it. -/
def verbosity (before within : Given) : Nat :=
  if within.has "verbose".toList then verboseCount within else verboseCount before

/-- The answer to `help` with the names of commands. -/
def helpAnswer (names : List Text) : UsageError :=
  match names with
  | [] => .help
  | [name] => if programShape.subcommands.contains name then .help else .unknownSubcommand
  | _ => .unknownSubcommand

/-- The command that the arguments of the program spell. -/
def ofArguments (args : List Text) : Except UsageError CommandLine := do
  let (before, rest) ← read programShape false .none args
  match rest with
  | none => if before.values = [] then .error .noArguments else .error .missingSubcommand
  | some (name, rest) =>
    if name = "scan".toList then
      let (within, _) ← read scanShape false .none rest
      let c ← scanOf within
      return ⟨verbosity before within, .scan c⟩
    else if name = "batch".toList then
      let (within, _) ← read batchShape false .none rest
      return ⟨verbosity before within, batchOf within⟩
    else .error (helpAnswer rest)

end CommandLine

end ImportXref
