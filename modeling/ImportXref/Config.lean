import ImportXref.Toml.Document
import ImportXref.Tree.Basic

/-!
# Configuration — `py-xref.toml`

A configuration holds patterns for excluded files, a directory for reports and the projects of a
batch; other keys are ignored.  Its relative paths start from the directory of the file.

* `load` looks for the file under a project root and takes the default for any trouble with it;
* `ofFile` takes a named file and fails.

Both are given for any reader of documents first (`loadBy`, `ofFileBy`); they use that of TOML.
-/

namespace ImportXref

/-- A project of a batch. -/
structure Project where
  /-- The name of the project's reports. -/
  name : Text
  /-- The directory that module names are relative to. -/
  root : Path
  /-- Source files and directories in the order of the report. -/
  sources : List Text
  deriving DecidableEq, Repr

/-- A configuration. -/
structure Config where
  /-- Patterns for excluded files. -/
  exclude : Option (List Text)
  /-- The directory for reports. -/
  reportsDir : Option Path
  /-- The projects of a batch. -/
  projects : List Project
  deriving DecidableEq, Repr

namespace Config

open Toml (Item Fields)

/-- The configuration without a file. -/
def default : Config := ⟨none, none, []⟩

/-- The name of the configuration file of a project. -/
def fileName : Text := "py-xref.toml".toList

/-- The patterns that are in force. -/
def patterns (c : Config) : List Text :=
  c.exclude.getD []

/-! ### From fields to a configuration -/

/-- The text of an item. -/
def text? : Item → Option Text
  | .scalar (.text t) => some t
  | _ => none

/-- The texts of a list. -/
def texts? : Item → Option (List Text)
  | .list items => items.mapM text?
  | _ => none

/-- A project from its three items. -/
def projectOf? (name root sources : Item) : Option Project := do
  some ⟨← text? name, .ofText (← text? root), ← texts? sources⟩

/-- A project from the fields of its table. -/
def projectOfFields? (fields : Fields) : Option Project := do
  projectOf? (← fields.lookup "name".toList) (← fields.lookup "root".toList)
    (← fields.lookup "sources".toList)

/-- A project from a table, or from a list that holds its items in order. -/
def project? : Item → Option Project
  | .table _ fields => projectOfFields? fields
  | .list (name :: root :: sources :: _) => projectOf? name root sources
  | _ => none

/-- The projects of a list or of an array of tables. -/
def projects? : Item → Option (List Project)
  | .list items => items.mapM project?
  | .tables elements => elements.mapM projectOfFields?
  | _ => none

/-- The value of a key that may be missing. -/
def optional? {α : Type} (fields : Fields) (key : String) (read : Item → Option α) :
    Option (Option α) :=
  match fields.lookup key.toList with
  | none => some none
  | some item => (read item).map some

/-- The configuration of a document. -/
def ofFields? (fields : Fields) : Option Config := do
  let exclude ← optional? fields "exclude" texts?
  let reportsDir ← optional? fields "reports_dir" text?
  let projects ← optional? fields "projects" projects?
  some ⟨exclude, reportsDir.map Path.ofText, projects.getD []⟩

/-- The configuration that a text spells. -/
def ofText? (t : Text) : Option Config :=
  (Toml.ofText? t).bind ofFields?

/-! ### Paths -/

/-- A path as seen from `base`. -/
def rebasePath (base p : Path) : Path :=
  if p.isAbsolute then p else base.join p

/-- The configuration with its paths as seen from `base`. -/
def rebase (base : Path) (c : Config) : Config :=
  { c with
    reportsDir := c.reportsDir.map (rebasePath base)
    projects := c.projects.map fun p => { p with root := rebasePath base p.root } }

/-! ### Files -/

/-- The configuration file of the project at `root`. -/
def file (root : Path) : Path :=
  root.join (.ofText fileName)

/-- The directory that the relative paths of a configuration file start from. -/
def directory (path : Path) : Path :=
  path.parent?.getD ⟨[]⟩

section

/- How the text of a file is understood. -/
variable (parse? : Text → Option Config)

/-- The configuration of the project at `root`, the default if there is none or any trouble with
it. -/
def loadBy (v : View) (root : Path) : List Event × Config :=
  let path := file root
  if v.pathExists path then
    match v.readText path with
    | .error _ => ([.configUnreadable path.display], default)
    | .ok contents =>
      match parse? contents with
      | none => ([.configMalformed path.display], default)
      | some c => ([], c.rebase root)
  else ([], default)

/-- The configuration of a named file. -/
def ofFileBy (v : View) (path : Path) : Except Failure Config :=
  match v.readText path with
  | .error e => .error ⟨["failed to read ".toList ++ path.display], .io e⟩
  | .ok contents =>
    match parse? contents with
    | none => .error ⟨["failed to parse ".toList ++ path.display], .config⟩
    | some c => .ok (c.rebase (directory path))

end

/-- The configuration of the project at `root`. -/
def load (v : View) (root : Path) : List Event × Config :=
  loadBy ofText? v root

/-- The configuration that a named file spells. -/
def ofFile (v : View) (path : Path) : Except Failure Config :=
  ofFileBy ofText? v path

end Config

end ImportXref
