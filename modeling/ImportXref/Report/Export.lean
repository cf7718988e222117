import ImportXref.Report.Json
import ImportXref.Report.Page
import ImportXref.Tree.Write

/-!
# Export — reports as files

The reports of a project are `xref_<name>.json` and `xref_<name>.html` in a directory that is made
if need be.  They are written one after the other, and a failure leaves those written before it.
-/

namespace ImportXref

/-- Which reports are wanted. -/
inductive Format where
  | json
  | html
  | all
  deriving DecidableEq, Repr

namespace Format

/-- Whether the JSON report is wanted. -/
def wantsJson (f : Format) : Bool :=
  f == json || f == all

/-- Whether the page is wanted. -/
def wantsHtml (f : Format) : Bool :=
  f == html || f == all

end Format

/-- How the reports of a project are written. -/
structure Export where
  /-- Which reports are wanted. -/
  format : Format
  /-- The name of the project. -/
  name : Text
  /-- The project root, shown on the page. -/
  root : Path
  /-- The directory for the reports. -/
  directory : Path
  /-- Whether the JSON report shows every reference. -/
  unscoped : Bool

/-- A report that is to be written. -/
structure Report where
  /-- Where to. -/
  path : Path
  /-- What. -/
  contents : Text
  /-- What is reported afterwards. -/
  event : Event

namespace Export

/-- Where a report with the given ending stands. -/
def reportPath (e : Export) (ending : String) : Path :=
  e.directory.join (.ofText ("xref_".toList ++ e.name ++ ending.toList))

/-- The JSON report. -/
def jsonReport (e : Export) (x : Index) : Report :=
  let path := e.reportPath ".json"
  ⟨path, x.json e.unscoped, .wroteJson path.display⟩

/-- The page. -/
def htmlReport (e : Export) (x : Index) : Report :=
  let path := e.reportPath ".html"
  ⟨path, Page.render x.table e.name e.root.display, .wroteHtml path.display⟩

/-- The reports that are wanted, in the order they are written. -/
def reports (e : Export) (x : Index) : List Report :=
  (if e.format.wantsJson then [e.jsonReport x] else []) ++
    (if e.format.wantsHtml then [e.htmlReport x] else [])

/-- Writes reports one after the other and gives their paths. -/
def writeAll (v : View) : List Report → View × Traced (List Path)
  | [] => (v, .ok [])
  | r :: rest =>
    match v.write r.path r.contents.utf8 with
    | .error e => (v, ⟨[], .error ⟨["failed to write ".toList ++ r.path.display], .io e⟩⟩)
    | .ok v =>
      let (v, written) := writeAll v rest
      (v, (written.andThen fun paths => .ok (r.path :: paths)).after [r.event])

/-- Makes the directory and writes the reports of an index. -/
def run (e : Export) (v : View) (x : Index) : View × Traced (List Path) :=
  match v.makeDirectories e.directory with
  | (v, .error err) =>
    (v, ⟨x.tableEvents,
      .error ⟨["failed to create reports directory ".toList ++ e.directory.display], .io err⟩⟩)
  | (v, .ok ()) =>
    let (v, written) := writeAll v (e.reports x)
    (v, written.after x.tableEvents)

end Export

end ImportXref
