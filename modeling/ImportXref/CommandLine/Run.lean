import ImportXref.CommandLine.Basic
import ImportXref.CommandLine.LogFilter
import ImportXref.CommandLine.Summary
import ImportXref.Config

/-!
# Runs — a command on a file tree

A run turns a tree into a tree with the reports in it, text for the two output streams, events for
the log and an exit code.  A failure ends it; what was written or printed before stays.
-/

namespace ImportXref

/-- A project that is to be scanned. -/
structure Job where
  /-- The project root as given. -/
  root : Path
  /-- The name of the project, if it is not the root's. -/
  name : Option Text
  /-- Source files and directories. -/
  sources : List Text
  /-- The directory for the reports. -/
  reportsDir : Path
  /-- Which reports are wanted. -/
  format : Format
  /-- Whether the JSON report shows every reference. -/
  unscoped : Bool
  /-- Whether the JSON report is printed and nothing is written. -/
  stdout : Bool

/-- How far a run has come. -/
structure Progress where
  /-- The tree. -/
  view : View
  /-- What was printed. -/
  stdout : Text
  /-- What was printed as a warning. -/
  stderr : Text
  /-- What was reported, and why the run ended early. -/
  trace : Traced Unit

namespace Progress

/-- Nothing has been done. -/
def start (v : View) : Progress :=
  ⟨v, [], [], .ok ()⟩

/-- Goes on with `next` unless the run ended early. -/
def andThen (p : Progress) (next : View → Progress) : Progress :=
  match p.trace.result with
  | .error _ => p
  | .ok () =>
    let q := next p.view
    ⟨q.view, p.stdout ++ q.stdout, p.stderr ++ q.stderr, p.trace.andThen fun _ => q.trace⟩

end Progress

namespace Job

/-- The name of the project: the given one, or the last name of its root. -/
def projectName (job : Job) (root : Path) : Text :=
  match job.name with
  | some name => name
  | none => (root.fileName?.map Bytes.text).getD "project".toList

/-- The absolute root of the project. -/
def absoluteRoot (job : Job) (v : View) : Traced Path :=
  if v.isDirectory job.root then
    .ofIo ("failed to resolve ".toList ++ job.root.display) (v.canonical job.root)
  else .fail (.rootNotADirectory job.root)

/-- The root, the name and the scan of the project. -/
def scan (job : Job) (patterns : List Text) (v : View) : Traced (Path × Text × Scan) :=
  (job.absoluteRoot v).andThen fun root =>
    (Scan.run v root patterns job.sources).andThen fun s =>
      let name := job.projectName root
      (Traced.ok (root, name, s)).after [.moduleFiles name s.files]

/-- Writes the reports of a scan and prints its summary, or prints the JSON report. -/
def report (job : Job) (json : Bool) (v : View) (root : Path) (name : Text) (s : Scan) :
    Progress :=
  if job.stdout then
    ⟨v, s.index.json job.unscoped ++ ['\n'], [], (Traced.ok ()).after s.index.tableEvents⟩
  else
    let e : Export := ⟨job.format, name, root, job.reportsDir, job.unscoped⟩
    let (v, written) := e.run v s.index
    match written.result with
    | .error f => ⟨v, [], [], ⟨written.events, .error f⟩⟩
    | .ok paths =>
      let summary : Summary := ⟨name, s, s.index.dropped, paths⟩
      ⟨v, summary.print json, summary.warning json, ⟨written.events, .ok ()⟩⟩

/-- Scans the project and writes its reports. -/
def run (job : Job) (patterns : List Text) (json : Bool) (v : View) : Progress :=
  let scanned := job.scan patterns v
  match scanned.result with
  | .error f => ⟨v, [], [], ⟨scanned.events, .error f⟩⟩
  | .ok (root, name, s) =>
    let p := job.report json v root name s
    { p with trace := p.trace.after scanned.events }

end Job

/-- The directory for reports where none is named. -/
def defaultReportsDir : Path := ⟨[46]⟩

namespace ScanCommand

/-- The project of a `scan` command. -/
def job (c : ScanCommand) (config : Config) : Job :=
  ⟨c.root, c.name, c.sources, (c.reportsDir.or config.reportsDir).getD defaultReportsDir,
    c.format, c.unscoped, c.stdout⟩

/-- Carries out a `scan` command. -/
def run (c : ScanCommand) (v : View) : Progress :=
  let (events, config) := Config.load v c.root
  let p := (c.job config).run config.patterns c.json v
  { p with trace := p.trace.after events }

end ScanCommand

namespace Batch

/-- The job of a project of a batch. -/
def job (config : Config) (p : Project) : Job :=
  ⟨p.root, some p.name, p.sources, config.reportsDir.getD defaultReportsDir, .all, false, false⟩

/-- Carries out the job of a project of a batch. -/
def runProject (config : Config) (json : Bool) (p : Project) (v : View) : Progress :=
  let q := (job config p).run config.patterns json v
  { q with trace := q.trace.within ("project ".toList ++ p.name.quoted ++ " failed".toList) }

/-- Carries out the jobs of several projects. -/
def runProjects (config : Config) (json : Bool) (v : View) : List Project → Progress
  | [] => .start v
  | p :: rest => (runProject config json p v).andThen fun v => runProjects config json v rest

/-- Carries out a `batch` command. -/
def run (path : Path) (json : Bool) (v : View) : Progress :=
  match Config.ofFile v path with
  | .error f => { Progress.start v with trace := ⟨[], .error f⟩ }
  | .ok config =>
    if config.projects = [] then { Progress.start v with trace := .fail (.noProjects path) }
    else runProjects config json v config.projects

end Batch

/-- Carries out a command. -/
def Command.run (c : Command) (v : View) : Progress :=
  match c with
  | .scan c => c.run v
  | .batch config json => Batch.run config json v

/-! ### What the user sees -/

namespace Failure

/-- A text over several lines, the further ones indented. -/
def indented (indent : Text) (t : Text) : Text :=
  ('\n' :: indent).intercalate (t.splitOn '\n')

/-- A cause below the first message; it has a number if there are several. -/
def causeLine (number : Option Nat) (t : Text) : Text :=
  match number with
  | none => '\n' :: "    ".toList ++ indented "    ".toList t
  | some n =>
    let digits := Text.ofNat n
    '\n' :: List.replicate (5 - digits.length) ' ' ++ digits ++ [':', ' '] ++
      indented "       ".toList t

/-- The messages below the first one. -/
def causes (f : Failure) : List Text :=
  (f.contexts ++ [f.cause.message]).tail

/-- Numbered causes, or one without number. -/
def causeLines (ts : List Text) : Text :=
  match ts with
  | [t] => causeLine none t
  | ts => (ts.mapIdx fun n t => causeLine (some n) t).flatten

/-- The failure as the user sees it.  What is wrong inside a configuration file is left out. -/
def report (f : Failure) : Text :=
  let first := "Error: ".toList ++ (f.contexts ++ [f.cause.message]).headD []
  let shown := if f.cause = .config then [] else causeLines f.causes
  let below := if f.causes = [] then [] else "\n\nCaused by:".toList ++ shown
  first ++ below ++ ['\n']

end Failure

/-- What a run of the program leaves behind. -/
structure Outcome where
  exitCode : Nat
  stdout : Text
  stderr : Text
  /-- The events that are shown. -/
  log : List Event
  /-- The tree with the reports. -/
  view : View

namespace Outcome

/-- The outcome of arguments that are no command. -/
def ofUsageError (e : UsageError) (v : View) : Outcome :=
  let answer := match e with
    | .version title => CommandLine.versionText title
    | _ => []
  ⟨e.exitCode, answer, [], [], v⟩

/-- The outcome where the filter of the log is cut inside a character: nothing is done. -/
def ofBrokenFilter (v : View) : Outcome :=
  ⟨101, [], [], [], v⟩

/-- The outcome of a run. -/
def ofProgress (shown : LogFilter) (p : Progress) : Outcome :=
  let log := p.trace.events.filter shown.shows
  match p.trace.result with
  | .ok () => ⟨0, p.stdout, p.stderr, log, p.view⟩
  | .error f => ⟨1, p.stdout, p.stderr ++ f.report, log, p.view⟩

end Outcome

/-- Runs the program with its arguments; `filter` spells out what is shown of the log. -/
def runProgram (args : List Text) (filter : Option Text) (v : View) : Outcome :=
  match CommandLine.ofArguments args with
  | .error e => .ofUsageError e v
  | .ok c =>
    match LogFilter.choose? filter c.verbose with
    | none => .ofBrokenFilter v
    | some shown => .ofProgress shown (c.command.run v)

end ImportXref
